import SecureReview.Privacy.Redaction
import SecureReview.Proofs.Pattern.Match
/-!
# Replacing the matches of a pattern

Splicing from the last match to the first is a pass from left to right:
`replaceAll_past` and `replaceAll_over` say what it writes at each step
of the search, and `substitutes_replaceAll` says it of the whole text.
Placeholders are words in angle brackets, so a stretch without brackets
that stands in the result, and not inside a placeholder, was copied from
the text: `exists_gap` gives the place at which the search came to it.
What a pattern without brackets matches in the result it therefore
matched in the text (`occursIn_of_replaceAll`), and the pattern just
replaced matches nothing (`not_occursIn_replaceAll_self`).
-/

namespace SecureReview

namespace Privacy

open Pattern

variable {p q : Pattern} {new word t u s a b r : List Char} {c : Char}

/-- The text with every match of the pattern replaced. -/
def replaceAll (p : Pattern) (new t : List Char) : List Char :=
  spliceAll new t (p.spans t)

/-! ## One pass from left to right -/

theorem foldl_splice_shift (ss : List Span) (t : List Char) :
    (ss.map (Span.shift a.length)).foldl (splice new) (a ++ t) = a ++ ss.foldl (splice new) t := by
  induction ss generalizing t with
  | nil => rfl
  | cons x ss ih =>
    have hx : splice new (a ++ t) (x.shift a.length) = a ++ splice new t x := by
      simp only [splice, Span.shift, Nat.add_comm _ a.length, List.take_length_add_append,
        List.drop_length_add_append, List.append_assoc]
    simp only [List.map_cons, List.foldl_cons, hx, ih]

/-- Stretches that lie behind `a` leave it alone. -/
theorem spliceAll_shift (ss : List Span) :
    spliceAll new (a ++ t) (ss.map (Span.shift a.length)) = a ++ spliceAll new t ss := by
  rw [spliceAll, ← List.map_reverse, foldl_splice_shift, spliceAll]

@[simp] theorem replaceAll_nil : replaceAll p new [] = [] := rfl

/-- A character at which nothing fits is copied. -/
theorem replaceAll_past (h : p.length? (c :: t) = none) :
    replaceAll p new (c :: t) = c :: replaceAll p new t := by
  rw [replaceAll, spans_past h]
  exact spliceAll_shift (a := [c]) _

/-- A match is replaced. -/
theorem replaceAll_over (hu : u ≠ []) (h : p.length? (u ++ t) = some u.length) :
    replaceAll p new (u ++ t) = new ++ replaceAll p new t := by
  rw [replaceAll, spans_over hu h, spliceAll, List.reverse_cons, List.foldl_append]
  have hrest : (List.map (Span.shift u.length) (p.spans t)).reverse.foldl (splice new) (u ++ t) =
      u ++ replaceAll p new t := spliceAll_shift _
  rw [hrest]
  simp [splice]

/-- What the search goes past is copied. -/
theorem replaceAll_passesOver (h : p.PassesOver s r) :
    replaceAll p new (s ++ r) = s ++ replaceAll p new r := by
  induction s with
  | nil => rfl
  | cons c s ih => rw [List.cons_append, replaceAll_past h.1, ih h.2, List.cons_append]

/-- From a place that the search comes to, the result goes on as that of
the rest. -/
theorem replaceAll_reaches (new : List Char) (h : p.Reaches t r) :
    ∃ a, replaceAll p new t = a ++ replaceAll p new r := by
  induction h with
  | here => exact ⟨[], rfl⟩
  | @past c t r hnone _ ih =>
    obtain ⟨a, ha⟩ := ih
    exact ⟨c :: a, by rw [replaceAll_past hnone, ha, List.cons_append]⟩
  | @across u t r hu hlen _ ih =>
    obtain ⟨a, ha⟩ := ih
    exact ⟨new ++ a, by rw [replaceAll_over hu hlen, ha, List.append_assoc]⟩

/-- A pass over a text that starts at a position, from left to right: what
the search goes past is copied, and `new` is put for each match. The
stretches are those of the matches, as positions before the pass. -/
inductive Substitutes (p : Pattern) (new : List Char) :
    Nat → List Char → List Span → List Char → Prop where
  | done {pos : Nat} {last : List Char} : p.PassesOver last [] → Substitutes p new pos last [] last
  | next {pos : Nat} {gap u t : List Char} {ss : List Span} {out : List Char} :
      p.PassesOver gap (u ++ t) → Matches p u →
      Substitutes p new (pos + gap.length + u.length) t ss out →
      Substitutes p new pos (gap ++ u ++ t)
        (⟨pos + gap.length, pos + gap.length + u.length⟩ :: ss) (gap ++ new ++ out)

namespace Substitutes

variable {pos : Nat} {ss : List Span} {out : List Char}

/-- A character that the search goes past belongs to the first gap. -/
theorem past (hnone : p.length? (c :: t) = none) (h : Substitutes p new (pos + 1) t ss out) :
    Substitutes p new pos (c :: t) ss (c :: out) := by
  cases h with
  | done hpass =>
    refine .done ⟨?_, hpass⟩
    rw [List.append_nil]
    exact hnone
  | @next _ gap u t ss out hpass hu h =>
    have hpos : pos + 1 + gap.length = pos + (c :: gap).length := by
      rw [List.length_cons]
      omega
    rw [hpos] at h ⊢
    have hpass' : p.PassesOver (c :: gap) (u ++ t) := by
      refine ⟨?_, hpass⟩
      rw [← List.append_assoc]
      exact hnone
    exact .next hpass' hu h

/-- **A pass has one outcome**, and the program for it computes it. -/
theorem eq_fillGaps (h : Substitutes p new pos t ss out) : out = fillGaps new pos t ss := by
  induction h with
  | done _ => rfl
  | @next pos gap u t ss out _ _ _ ih =>
    have hgap : pos + gap.length - pos = gap.length := by omega
    have hover : pos + gap.length + u.length - pos = (gap ++ u).length := by
      rw [List.length_append]
      omega
    have htake : (gap ++ u ++ t).take gap.length = gap := by
      rw [List.append_assoc, List.take_left]
    rw [fillGaps, hgap, hover, htake, List.drop_left, ih]

end Substitutes

/-- **Splicing from the last match to the first is such a pass.** -/
theorem substitutes_replaceAll (hp : ¬ Matches p []) (new t : List Char) (pos : Nat) :
    Substitutes p new pos t (spansFrom p 0 pos t) (replaceAll p new t) := by
  induction t using search_induction hp generalizing pos with
  | nil => exact .done trivial
  | past c t hnone ih =>
    rw [replaceAll_past hnone, spansFrom, hnone]
    exact (ih (pos + 1)).past hnone
  | across u t hu hmatch hlen ih =>
    rw [replaceAll_over hu hlen, spansFrom_over hu hlen]
    have hgap : p.PassesOver [] (u ++ t) := trivial
    exact .next hgap hmatch (ih (pos + u.length))

/-! ## What stands between the placeholders -/

/-- A word in angle brackets. -/
def bracketed (word : List Char) : List Char :=
  '<' :: (word ++ ['>'])

/-- A stretch without brackets at the start of the result was copied
from the start of the text. -/
theorem exists_gap_at_start (hp : ¬ Matches p []) (hs : '<' ∉ s)
    (h : replaceAll p (bracketed word) t = s ++ b) :
    ∃ r, t = s ++ r ∧ p.PassesOver s r ∧ b = replaceAll p (bracketed word) r := by
  induction t using search_induction hp generalizing s with
  | nil =>
    obtain ⟨rfl, rfl⟩ := List.append_eq_nil_iff.1 h.symm
    exact ⟨[], rfl, trivial, rfl⟩
  | past c t hnone ih =>
    cases s with
    | nil => exact ⟨c :: t, rfl, trivial, h.symm⟩
    | cons d s =>
      rw [replaceAll_past hnone, List.cons_append, List.cons_eq_cons] at h
      obtain ⟨rfl, h⟩ := h
      obtain ⟨r, rfl, hpass, hb⟩ := ih (fun hm => hs (List.mem_cons_of_mem c hm)) h
      exact ⟨r, rfl, ⟨hnone, hpass⟩, hb⟩
  | across u t hu _ hlen _ =>
    cases s with
    | nil => exact ⟨u ++ t, rfl, trivial, h.symm⟩
    | cons d s =>
      rw [replaceAll_over hu hlen, bracketed, List.cons_append, List.cons_append,
        List.cons_eq_cons] at h
      exact absurd (h.1 ▸ List.mem_cons_self) hs

/-- A stretch without brackets in a word in brackets lies in the word. -/
theorem infix_of_bracket_eq (hne : s ≠ []) (hlt : '<' ∉ s) (h : '<' :: word = a ++ s ++ b) :
    s <:+: word := by
  cases a with
  | nil =>
    obtain ⟨d, s, rfl⟩ := List.exists_cons_of_ne_nil hne
    exact absurd ((List.cons_eq_cons.1 h).1 ▸ List.mem_cons_self) hlt
  | cons d a => exact ⟨a, b, (List.cons_eq_cons.1 h).2.symm⟩

/-- A stretch without brackets does not reach out of a placeholder, nor
into one. -/
theorem append_eq_bracketed_append (hne : s ≠ []) (hlt : '<' ∉ s) (hgt : '>' ∉ s)
    (hword : ¬ s <:+: word) (h : bracketed word ++ r = a ++ s ++ b) :
    ∃ d, r = d ++ s ++ b := by
  rw [List.append_assoc, List.append_eq_append_iff] at h
  obtain ⟨d, -, hr⟩ | ⟨d, hd, hr⟩ := h
  · exact ⟨d, by rw [hr, List.append_assoc]⟩
  · -- here `s` would start inside the placeholder, whose rest from there is `d`
    rcases List.eq_nil_or_concat d with rfl | ⟨d, e, rfl⟩
    · exact ⟨[], by simpa using hr.symm⟩
    · exfalso
      rw [List.concat_eq_append] at hd hr
      rw [bracketed, ← List.cons_append, ← List.append_assoc] at hd
      obtain ⟨hword', he⟩ := List.append_inj' hd rfl
      obtain rfl : '>' = e := by simpa using he
      rw [List.append_assoc, List.append_eq_append_iff] at hr
      obtain ⟨x, rfl, -⟩ | ⟨x, hx, hr⟩ := hr
      · exact hword (infix_of_bracket_eq hne hlt (by rw [hword', List.append_assoc]))
      · cases x with
        | nil =>
          obtain rfl : s = d := by simpa using hx
          exact hword (infix_of_bracket_eq (b := []) hne hlt (by simpa using hword'))
        | cons y x =>
          obtain ⟨rfl, -⟩ := List.cons_eq_cons.1 hr
          exact hgt (by simp [hx])

/-- **What stands between the placeholders was copied.** The search came
to such a stretch and went past it, and the result goes on as that of
the rest. -/
theorem exists_gap (hp : ¬ Matches p []) (hne : s ≠ []) (hlt : '<' ∉ s) (hgt : '>' ∉ s)
    (hword : ¬ s <:+: word) (h : replaceAll p (bracketed word) t = a ++ s ++ b) :
    ∃ r, p.Reaches t (s ++ r) ∧ p.PassesOver s r ∧ b = replaceAll p (bracketed word) r := by
  induction t using search_induction hp generalizing a with
  | nil =>
    have : s = [] := by simp_all
    exact absurd this hne
  | past c t hnone ih =>
    cases a with
    | nil =>
      obtain ⟨r, ht, hpass, hb⟩ := exists_gap_at_start hp hlt h
      exact ⟨r, ht ▸ .here, hpass, hb⟩
    | cons d a =>
      rw [replaceAll_past hnone] at h
      obtain ⟨r, hreach, hpass, hb⟩ := ih (List.cons_eq_cons.1 h).2
      exact ⟨r, .past hnone hreach, hpass, hb⟩
  | across u t hu _ hlen ih =>
    rw [replaceAll_over hu hlen] at h
    obtain ⟨d, hd⟩ := append_eq_bracketed_append hne hlt hgt hword h
    obtain ⟨r, hreach, hpass, hb⟩ := ih hd
    exact ⟨r, .across hu hlen hreach, hpass, hb⟩

/-! ## Patterns without brackets -/

/-- A match in the result, of a pattern without brackets that does not
occur in the placeholder's word, was copied. -/
theorem exists_gap_of_matches (hp : ¬ Matches p []) (hq : ¬ Matches q [])
    (hlt : q.excludes '<' = true) (hgt : q.excludes '>' = true) (hword : ¬ q.OccursIn word)
    (hu : Matches q u) (h : replaceAll p (bracketed word) t = a ++ u ++ b) :
    ∃ r, p.Reaches t (u ++ r) ∧ p.PassesOver u r := by
  have hne : u ≠ [] := by
    rintro rfl
    exact hq hu
  have hinfix : ¬ u <:+: word := by
    rintro ⟨x, y, rfl⟩
    exact hword ⟨x, u, y, rfl, hu⟩
  obtain ⟨r, hreach, hpass, -⟩ := exists_gap hp hne (not_mem_of_excludes hlt hu)
    (not_mem_of_excludes hgt hu) hinfix h
  exact ⟨r, hreach, hpass⟩

/-- **Replacing makes no new match** of such a pattern. -/
theorem occursIn_of_replaceAll (hp : ¬ Matches p []) (hq : ¬ Matches q [])
    (hlt : q.excludes '<' = true) (hgt : q.excludes '>' = true) (hword : ¬ q.OccursIn word)
    (h : q.OccursIn (replaceAll p (bracketed word) t)) : q.OccursIn t := by
  obtain ⟨a, u, b, h, hu⟩ := h
  obtain ⟨r, hreach, -⟩ := exists_gap_of_matches hp hq hlt hgt hword hu h
  obtain ⟨x, rfl⟩ := hreach.exists_append
  exact ⟨x, u, r, by rw [List.append_assoc], hu⟩

/-- **And replacing such a pattern leaves no match of it**: the search
would not have gone past it. -/
theorem not_occursIn_replaceAll_self (hp : ¬ Matches p [])
    (hlt : p.excludes '<' = true) (hgt : p.excludes '>' = true) (hword : ¬ p.OccursIn word) :
    ¬ p.OccursIn (replaceAll p (bracketed word) t) := by
  rintro ⟨a, u, b, h, hu⟩
  obtain ⟨r, -, hpass⟩ := exists_gap_of_matches hp hp hlt hgt hword hu h
  cases u with
  | nil => exact hp hu
  | cons c u => exact length?_eq_none_iff.1 hpass.1 (c :: u) r rfl hu

end Privacy

end SecureReview
