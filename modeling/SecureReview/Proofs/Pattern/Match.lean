import SecureReview.Pattern.Basic
/-!
# What a pattern matches, and where a search finds it

`Pattern.rests` enumerates what `Pattern.Matches` describes
(`mem_rests`), so the search for a pattern succeeds at a place exactly
where some stretch from there on fits (`length?_eq_none_iff`), and
anywhere exactly where the pattern occurs (`found_iff_occursIn`).

A search goes over a text in two kinds of steps: past a character at
which nothing fits, or over a whole match. `search_induction` is the
induction along these steps, and `Reaches` says that a search comes to a
given rest of the text.
-/

namespace SecureReview

namespace Pattern

variable {p q : Pattern} {s : CharSet} {c : Char} {t u v r : List Char}

/-! ## Matching, constructor by constructor -/

@[simp] theorem matches_empty_iff : Matches .empty u ↔ u = [] := by
  constructor
  · intro h
    cases h
    rfl
  · rintro rfl
    exact .empty

@[simp] theorem matches_set_iff : Matches (.set s) u ↔ ∃ c, s.has c ∧ u = [c] := by
  constructor
  · intro h
    cases h with
    | set hc => exact ⟨_, hc, rfl⟩
  · rintro ⟨c, hc, rfl⟩
    exact .set hc

@[simp] theorem matches_repeated_iff {least : Nat} {most : Option Nat} :
    Matches (.repeated s least most) u ↔
      (∀ c ∈ u, s.has c) ∧ least ≤ u.length ∧ ∀ n, most = some n → u.length ≤ n := by
  constructor
  · intro h
    cases h with
    | repeated hs hleast hmost => exact ⟨hs, hleast, hmost⟩
  · rintro ⟨hs, hleast, hmost⟩
    exact .repeated hs hleast hmost

@[simp] theorem matches_seq_iff :
    Matches (.seq p q) u ↔ ∃ v w, u = v ++ w ∧ Matches p v ∧ Matches q w := by
  constructor
  · intro h
    cases h with
    | seq hp hq => exact ⟨_, _, rfl, hp, hq⟩
  · rintro ⟨v, w, rfl, hp, hq⟩
    exact .seq hp hq

@[simp] theorem matches_alt_iff : Matches (.alt p q) u ↔ Matches p u ∨ Matches q u := by
  constructor
  · intro h
    cases h with
    | left hp => exact Or.inl hp
    | right hq => exact Or.inr hq
  · rintro (hp | hq)
    · exact .left hp
    · exact .right hq

@[simp] theorem matches_all_nil : Matches (all []) u ↔ u = [] := matches_empty_iff

/-- A pattern with others after it. -/
@[simp] theorem matches_all_cons {ps : List Pattern} :
    Matches (all (p :: ps)) u ↔ ∃ v w, u = v ++ w ∧ Matches p v ∧ Matches (all ps) w := by
  cases ps with
  | nil => simp [all]
  | cons q ps => exact matches_seq_iff

/-- The range of one character. -/
theorem within_self_iff {d : Char} :
    (decide (c.toNat ≤ d.toNat) && decide (d.toNat ≤ c.toNat)) = true ↔ d = c := by
  rw [← Char.toNat_inj, Bool.and_eq_true, decide_eq_true_eq, decide_eq_true_eq]
  omega

@[simp] theorem matches_char_iff : Matches (char c) u ↔ u = [c] := by
  have hc : ∀ d, (⟨[(c.toNat, c.toNat)], false⟩ : CharSet).has d = true ↔ d = c := by
    intro d
    simp only [CharSet.has, List.any_cons, List.any_nil, Bool.or_false, Bool.bne_false,
      within_self_iff]
  simp [char, hc]

theorem has_allBut {d : Char} : (CharSet.allBut c).has d = true ↔ d ≠ c := by
  simp only [CharSet.has, CharSet.allBut, List.any_cons, List.any_nil, Bool.or_false,
    Bool.bne_true, Bool.not_eq_true', Bool.eq_false_iff, ne_eq, within_self_iff]

/-- A fixed text matches itself. -/
@[simp] theorem matches_text_iff {w : String} : Matches (text w) u ↔ u = w.toList := by
  unfold text
  generalize w.toList = l
  induction l generalizing u with
  | nil => simp
  | cons c l ih => simp [ih]

/-! ## The rests are those that leave a match behind -/

/-- A run of characters of a set, within its bounds, is what a rest of
`runRests` leaves behind. -/
theorem mem_runRests {least : Nat} {most : Option Nat} :
    r ∈ runRests s least most t ↔
      ∃ u, t = u ++ r ∧ Matches (.repeated s least most) u := by
  induction t generalizing least most r with
  | nil =>
    simp only [runRests, matches_repeated_iff]
    constructor
    · intro h
      split at h
      · next h0 =>
        obtain rfl : r = [] := by simpa using h
        exact ⟨[], rfl, by simp, by simpa using h0, by simp⟩
      · simp at h
    · rintro ⟨u, hu, -, hleast, -⟩
      obtain ⟨rfl, rfl⟩ := List.append_eq_nil_iff.1 hu.symm
      have h0 : least = 0 := by simpa using hleast
      simp [h0]
  | cons c t ih =>
    have hlonger : r ∈ (if most != some 0 && s.has c then
          runRests s (least - 1) (most.map (· - 1)) t else []) ↔
        ∃ u, t = u ++ r ∧ Matches (.repeated s least most) (c :: u) := by
      by_cases hc : (most != some 0 && s.has c) = true
      · rw [if_pos hc, ih]
        simp only [Bool.and_eq_true, bne_iff_ne, ne_eq] at hc
        refine exists_congr fun u => and_congr_right fun _ => ?_
        simp only [matches_repeated_iff, List.mem_cons, forall_eq_or_imp, hc.2, true_and,
          List.length_cons]
        refine and_congr_right fun _ => and_congr (by omega) ?_
        cases most with
        | none => simp
        | some n =>
          have hn : n ≠ 0 := by simpa using hc.1
          simp only [Option.map_some, Option.some.injEq, forall_eq']
          omega
      · rw [if_neg hc]
        simp only [List.not_mem_nil, false_iff, not_exists, not_and, matches_repeated_iff,
          List.mem_cons, forall_eq_or_imp, List.length_cons]
        rintro u - ⟨hs, -⟩ - hmost
        have hmost0 : most ≠ some 0 := by
          intro h0
          have := hmost 0 h0
          omega
        exact hc (by simp [hs, hmost0])
    -- a run is empty, or it starts with `c`
    have hsplit : (∃ u, c :: t = u ++ r ∧ Matches (.repeated s least most) u) ↔
        (∃ u, t = u ++ r ∧ Matches (.repeated s least most) (c :: u)) ∨
          (least = 0 ∧ r = c :: t) := by
      constructor
      · rintro ⟨u, hu, hm⟩
        cases u with
        | nil =>
          right
          simp only [matches_repeated_iff, List.length_nil, Nat.le_zero] at hm
          exact ⟨hm.2.1, by simpa using hu.symm⟩
        | cons d u =>
          obtain ⟨rfl, ht⟩ := List.cons_eq_cons.1 hu
          exact Or.inl ⟨u, ht, hm⟩
      · rintro (⟨u, rfl, hm⟩ | ⟨h0, rfl⟩)
        · exact ⟨c :: u, rfl, hm⟩
        · exact ⟨[], rfl, by simp [h0]⟩
    rw [hsplit, ← hlonger]
    simp only [runRests]
    by_cases h0 : least = 0 <;> simp [h0]

/-- **The rests of a pattern are what its matches at the start of the
text leave behind.** -/
theorem mem_rests : r ∈ rests p t ↔ ∃ u, t = u ++ r ∧ Matches p u := by
  induction p generalizing t r with
  | empty => simp [rests, eq_comm]
  | set s =>
    cases t with
    | nil => simp [rests]
    | cons c t =>
      simp only [rests, matches_set_iff]
      constructor
      · intro h
        split at h
        · next hc =>
          obtain rfl : r = t := by simpa using h
          exact ⟨[c], rfl, c, hc, rfl⟩
        · simp at h
      · rintro ⟨u, hu, d, hd, rfl⟩
        obtain ⟨rfl, rfl⟩ := List.cons_eq_cons.1 hu
        simp [hd]
  | repeated s least most => exact mem_runRests
  | seq p q ihp ihq =>
    simp only [rests, List.mem_flatMap, ihp, ihq, matches_seq_iff]
    constructor
    · rintro ⟨m, ⟨v, rfl, hv⟩, w, rfl, hw⟩
      exact ⟨v ++ w, by simp, v, w, rfl, hv, hw⟩
    · rintro ⟨u, rfl, v, w, rfl, hv, hw⟩
      exact ⟨w ++ r, ⟨v, by simp, hv⟩, w, rfl, hw⟩
  | alt p q ihp ihq =>
    simp only [rests, List.mem_append, ihp, ihq, matches_alt_iff]
    constructor
    · rintro (⟨u, rfl, hu⟩ | ⟨u, rfl, hu⟩)
      · exact ⟨u, rfl, Or.inl hu⟩
      · exact ⟨u, rfl, Or.inr hu⟩
    · rintro ⟨u, rfl, hu | hu⟩
      · exact Or.inl ⟨u, rfl, hu⟩
      · exact Or.inr ⟨u, rfl, hu⟩

/-- A search finds nothing at a place where no stretch fits. -/
theorem length?_eq_none_iff : p.length? t = none ↔ ∀ u r, t = u ++ r → ¬ Matches p u := by
  simp only [length?, Option.map_eq_none_iff, List.head?_eq_none_iff]
  constructor
  · intro h u r ht hu
    have : r ∈ rests p t := mem_rests.2 ⟨u, ht, hu⟩
    simp [h] at this
  · intro h
    refine List.eq_nil_iff_forall_not_mem.2 fun r hr => ?_
    obtain ⟨u, ht, hu⟩ := mem_rests.1 hr
    exact h u r ht hu

/-- What a search takes at a place fits the pattern. -/
theorem exists_match_of_length? {n : Nat} (h : p.length? t = some n) :
    ∃ u r, t = u ++ r ∧ Matches p u ∧ u.length = n := by
  simp only [length?, Option.map_eq_some_iff] at h
  obtain ⟨r, hr, rfl⟩ := h
  obtain ⟨u, rfl, hu⟩ := mem_rests.1 (List.mem_of_mem_head? hr)
  exact ⟨u, r, rfl, hu, by simp⟩

/-! ## Two checks on a pattern -/

/-- The pattern fits the empty text. -/
def nullable : Pattern → Bool
  | .empty => true
  | .set _ => false
  | .repeated _ least _ => least == 0
  | .seq p q => p.nullable && q.nullable
  | .alt p q => p.nullable || q.nullable

theorem nullable_iff : p.nullable = true ↔ Matches p [] := by
  induction p with
  | empty => simp [nullable]
  | set s => simp [nullable]
  | repeated s least most => simp [nullable]
  | seq p q ihp ihq =>
    simp only [nullable, Bool.and_eq_true, ihp, ihq, matches_seq_iff]
    constructor
    · rintro ⟨hp, hq⟩
      exact ⟨[], [], rfl, hp, hq⟩
    · rintro ⟨v, w, hvw, hp, hq⟩
      obtain ⟨rfl, rfl⟩ := List.append_eq_nil_iff.1 hvw.symm
      exact ⟨hp, hq⟩
  | alt p q ihp ihq => simp [nullable, ihp, ihq]

/-- No set of the pattern has the character. -/
def excludes (c : Char) : Pattern → Bool
  | .empty => true
  | .set s => !s.has c
  | .repeated s _ _ => !s.has c
  | .seq p q => p.excludes c && q.excludes c
  | .alt p q => p.excludes c && q.excludes c

/-- So no match has it. -/
theorem not_mem_of_excludes (h : p.excludes c = true) (hu : Matches p u) : c ∉ u := by
  induction hu with
  | empty => exact List.not_mem_nil
  | @set s d hd =>
    rintro hc
    obtain rfl := List.mem_singleton.1 hc
    simp [excludes, hd] at h
  | @repeated s least most u hs _ _ =>
    intro hc
    simp [excludes, hs c hc] at h
  | seq _ _ ihp ihq =>
    simp only [excludes, Bool.and_eq_true] at h
    simp [ihp h.1, ihq h.2]
  | left _ ih =>
    simp only [excludes, Bool.and_eq_true] at h
    exact ih h.1
  | right _ ih =>
    simp only [excludes, Bool.and_eq_true] at h
    exact ih h.2

/-! ## The steps of a search -/

/-- **Induction along a search.** The search goes past a character at
which nothing fits, or over what it takes there. -/
theorem search_induction {motive : List Char → Prop} (hp : ¬ Matches p []) (nil : motive [])
    (past : ∀ c t, p.length? (c :: t) = none → motive t → motive (c :: t))
    (across : ∀ u t, u ≠ [] → Matches p u → p.length? (u ++ t) = some u.length →
      motive t → motive (u ++ t)) (t : List Char) : motive t := by
  induction hn : t.length using Nat.strongRecOn generalizing t with
  | ind n ih =>
    cases t with
    | nil => exact nil
    | cons c t =>
      cases h : p.length? (c :: t) with
      | none => exact past c t h (ih _ (by simp [← hn]) t rfl)
      | some m =>
        obtain ⟨u, r, hu, hm, rfl⟩ := exists_match_of_length? h
        have hne : u ≠ [] := by
          rintro rfl
          exact hp hm
        have hlt : r.length < n := by
          have := List.length_pos_iff.2 hne
          have := congrArg List.length hu
          simp only [List.length_append] at this
          omega
        rw [hu] at h ⊢
        exact across u r hne hm h (ih _ hlt r rfl)

/-- The search in a text comes to the rest `r`. -/
inductive Reaches (p : Pattern) : List Char → List Char → Prop where
  | here {t : List Char} : Reaches p t t
  | past {c : Char} {t r : List Char} :
      p.length? (c :: t) = none → Reaches p t r → Reaches p (c :: t) r
  | across {u t r : List Char} :
      u ≠ [] → p.length? (u ++ t) = some u.length → Reaches p t r → Reaches p (u ++ t) r

/-- What the search comes to is a suffix of the text. -/
theorem Reaches.exists_append (h : p.Reaches t r) : ∃ a, t = a ++ r := by
  induction h with
  | here => exact ⟨[], rfl⟩
  | @past c t r _ _ ih =>
    obtain ⟨a, rfl⟩ := ih
    exact ⟨c :: a, rfl⟩
  | @across u t r _ _ _ ih =>
    obtain ⟨a, rfl⟩ := ih
    exact ⟨u ++ a, by simp⟩

/-- The search goes past all characters of the first text when the
second follows. -/
def PassesOver (p : Pattern) : List Char → List Char → Prop
  | [], _ => True
  | c :: s, r => p.length? (c :: (s ++ r)) = none ∧ p.PassesOver s r

theorem passesOver_of_forall
    (h : ∀ a c z, v = a ++ c :: z → p.length? (c :: (z ++ r)) = none) : p.PassesOver v r := by
  induction v with
  | nil => trivial
  | cons c v ih =>
    exact ⟨h [] c v rfl, ih fun a d z hv => h (c :: a) d z (by rw [hv, List.cons_append])⟩

/-! ## The stretches that a search finds -/

/-- A stretch moved to the right. -/
def Span.shift (n : Nat) (s : Span) : Span :=
  ⟨s.start + n, s.stop + n⟩

theorem spansFrom_add (skip pos n : Nat) :
    spansFrom p skip (pos + n) t = (spansFrom p skip pos t).map (Span.shift n) := by
  induction t generalizing skip pos with
  | nil => simp [spansFrom]
  | cons c t ih =>
    cases skip with
    | succ skip =>
      simp only [spansFrom]
      rw [Nat.add_right_comm, ih]
    | zero =>
      simp only [spansFrom]
      cases p.length? (c :: t) with
      | none =>
        simp only
        rw [Nat.add_right_comm, ih]
      | some m =>
        simp only [List.map_cons, List.cons.injEq]
        refine ⟨by simp [Span.shift, Nat.add_right_comm], ?_⟩
        rw [Nat.add_right_comm, ih]

theorem spansFrom_append (u t : List Char) (pos : Nat) :
    spansFrom p u.length pos (u ++ t) = spansFrom p 0 (pos + u.length) t := by
  induction u generalizing pos with
  | nil => simp
  | cons c u ih =>
    simp only [List.length_cons, List.cons_append, spansFrom]
    rw [ih, Nat.add_assoc, Nat.add_comm 1]

@[simp] theorem spans_nil : p.spans [] = [] := rfl

/-- A step past a character finds nothing there. -/
theorem spans_past (h : p.length? (c :: t) = none) :
    p.spans (c :: t) = (p.spans t).map (Span.shift 1) := by
  rw [spans, spansFrom, h, spans, ← spansFrom_add]

/-- A step over a match finds it. -/
theorem spansFrom_over {pos : Nat} (hu : u ≠ []) (h : p.length? (u ++ t) = some u.length) :
    spansFrom p 0 pos (u ++ t) = ⟨pos, pos + u.length⟩ :: spansFrom p 0 (pos + u.length) t := by
  obtain ⟨c, v, rfl⟩ := List.exists_cons_of_ne_nil hu
  rw [List.cons_append] at h
  rw [List.cons_append, spansFrom, h]
  simp only [List.length_cons, Nat.add_sub_cancel]
  rw [spansFrom_append, Nat.add_assoc, Nat.add_comm 1]

theorem spans_over (hu : u ≠ []) (h : p.length? (u ++ t) = some u.length) :
    p.spans (u ++ t) = ⟨0, u.length⟩ :: (p.spans t).map (Span.shift u.length) := by
  rw [spans, spansFrom_over hu h, spansFrom_add, Nat.zero_add, spans]

/-- **A search finds nothing exactly when the pattern occurs nowhere.** -/
theorem spans_eq_nil_iff (hp : ¬ Matches p []) : p.spans t = [] ↔ ¬ p.OccursIn t := by
  induction t using search_induction hp with
  | nil =>
    simp only [spans_nil, true_iff]
    rintro ⟨a, u, b, h, hu⟩
    have : u = [] := by simp_all
    exact hp (this ▸ hu)
  | past c t hnone ih =>
    rw [spans_past hnone, List.map_eq_nil_iff, ih]
    refine not_congr ⟨?_, ?_⟩
    · rintro ⟨a, u, b, rfl, hu⟩
      exact ⟨c :: a, u, b, rfl, hu⟩
    · rintro ⟨a, u, b, h, hu⟩
      cases a with
      | nil => exact absurd hu (length?_eq_none_iff.1 hnone u b (by simpa using h))
      | cons d a => exact ⟨a, u, b, (List.cons_eq_cons.1 h).2, hu⟩
  | across u t hne hu hlen _ =>
    rw [spans_over hne hlen]
    simp only [reduceCtorEq, false_iff, Classical.not_not]
    exact ⟨[], u, t, rfl, hu⟩

theorem found_iff_occursIn (hp : ¬ Matches p []) : p.found t = true ↔ p.OccursIn t := by
  simp [found, spans_eq_nil_iff hp]

end Pattern

end SecureReview
